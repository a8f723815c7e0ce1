import ApexChainx.Contract.Access
import ApexChainx.Contract.Config
import ApexChainx.Contract.History

/-!
# Lifecycle and configuration entry points

`initialize`, `migrate`, pause and freeze, and the configuration updates of `lib.rs`.
-/

namespace ApexChainx

open Host Misc

/-! ## Initialization and migration -/

/-- `initialize`. The operator authorizes only when it is not the admin. -/
def initializeContract (admin operator : Address) : Contract Unit := do
  let initialized ← Contract.has .admin
  Contract.failIf (initialized = true) .AlreadyInitialized
  Prog.requireAuth admin
  if admin ≠ operator then Prog.requireAuth operator else pure ()
  Contract.set .admin admin
  Contract.set .operator operator
  Contract.set .paused false
  Contract.set .stats SLAStats.zero
  Contract.set .severityCalcCounts 0
  Contract.set .severityViolCounts 0
  Contract.set .lastCalculationTs 0
  Contract.set .lastViolationTs 0
  Contract.set .histHead 0
  Contract.set .histTail 0
  Contract.set .historyLen 0
  Contract.set .config defaultConfigs
  Contract.set .configCount defaultConfigs.len
  Contract.set .customConfig OrdMap.empty
  Contract.set .storageVersion storageVersion

/-- Set a key that is absent: `if !inst.has(&key) { inst.set(&key, &v) }`. -/
def setMissing (key : StorageKey) (v : key.Val) : Contract Unit := do
  let present ← Contract.has key
  if present then pure () else Contract.set key v

/-- `init_missing_storage_defaults`. -/
def initMissingStorageDefaults : Contract Unit := do
  setMissing .paused false
  setMissing .stats SLAStats.zero
  setMissing .severityCalcCounts 0
  setMissing .severityViolCounts 0
  setMissing .lastCalculationTs 0
  setMissing .lastViolationTs 0
  setMissing .history []
  let history ← Contract.getD .history []
  setMissing .historyLen history.length
  setMissing .config defaultConfigs
  setMissing .customConfig OrdMap.empty
  let configs ← Contract.getD .config OrdMap.empty
  setMissing .configCount configs.len

/-- The `v0 → v1` arm of `migrate`. -/
def migrateV0 : Contract Unit := do
  initMissingStorageDefaults
  Contract.set .storageVersion 1

/-- The `v1 → v2` arm of `migrate`: backfill the cached history length. -/
def migrateV1 : Contract Unit := do
  let history ← Contract.getD .history []
  Contract.set .historyLen history.length
  Contract.set .storageVersion 2

/-- The `v2 → v3` arm of `migrate`: shard the history and backfill the config count. -/
def migrateV2 : Contract Unit := do
  let legacy ← Contract.getD .history []
  Contract.remove .history
  History.migrateToSharded legacy
  let configs ← Contract.getD .config OrdMap.empty
  Contract.set .configCount configs.len
  Contract.set .storageVersion 3

/-- One arm of `migrate`, on the version reached so far:
`if current == version { ...; current = version + 1 }`. -/
def migrateArm (version : Nat) (arm : Contract Unit) (current : Nat) : Contract Nat :=
  if current = version then do
    arm
    pure (version + 1)
  else pure current

/-- `migrate`. -/
def migrate (caller : Address) : Contract Unit := do
  Prog.requireAuth caller
  let admin ← Contract.getOr .admin .NotInitialized
  Contract.failIf (caller ≠ admin) .Unauthorized
  let stored ← Contract.getD .storageVersion 0
  if stored = storageVersion then pure ()
  else do
    Contract.failIf (stored > storageVersion) .VersionMismatch
    let current ← migrateArm 0 migrateV0 stored
    let current ← migrateArm 1 migrateV1 current
    let current ← migrateArm 2 migrateV2 current
    Contract.failIf (current ≠ storageVersion) .VersionMismatch
    Contract.publish (.migrateDone caller stored current)

/-! ## Pause and freeze -/

/-- `pause`. -/
def pause (caller : Address) (reason : List UInt8) : Contract Unit := do
  Contract.reads checkVersion
  requireAdmin caller
  Contract.failIf (reason.length > maxReasonLen) .InvalidInput
  let paused_at ← Prog.timestamp
  Contract.set .paused true
  Contract.set .pauseInfo ⟨reason, paused_at, caller⟩
  Contract.publish (.paused caller true)

/-- `unpause`. -/
def unpause (caller : Address) : Contract Unit := do
  Contract.reads checkVersion
  requireAdmin caller
  Contract.set .paused false
  Contract.remove .pauseInfo
  Contract.publish (.unpaused caller false)

/-- `freeze_config`. -/
def freezeConfig (caller : Address) : Contract Unit := do
  Contract.reads checkVersion
  requireAdmin caller
  let changed ← freezeFlag
  if changed then Contract.publish (.configFreeze caller) else pure ()

/-- `unfreeze_config`. -/
def unfreezeConfig (caller : Address) : Contract Unit := do
  Contract.reads checkVersion
  requireAdmin caller
  let changed ← unfreezeFlag
  if changed then Contract.publish (.configUnfreeze caller) else pure ()

/-! ## Configuration updates -/

/-- `set_config`. -/
def setConfig (caller : Address) (severity : Symbol) (threshold_minutes : Nat)
    (penalty_per_minute reward_base : Int) : Contract Unit := do
  Contract.reads checkVersion
  requireAdmin caller
  Contract.reads requireNotFrozen
  Contract.reads fun _ => validateConfig severity threshold_minutes penalty_per_minute reward_base
  Contract.reads (validateCrossSeverityPenaltyOrdering severity penalty_per_minute)
  Contract.reads (validateCrossSeverityThresholdOrdering severity threshold_minutes)
  let configs ← Contract.getOr .config .NotInitialized
  let configs := configs.set severity ⟨threshold_minutes, penalty_per_minute, reward_base⟩
  Contract.set .config configs
  Contract.set .configCount configs.len
  recordConfigUpdate
  recordConfigRegistry
  Contract.publish (.configUpd severity threshold_minutes penalty_per_minute reward_base)

/-- `set_custom_severity`. -/
def setCustomSeverity (caller : Address) (severity : Symbol) (threshold_minutes : Nat)
    (penalty_per_minute reward_base : Int) : Contract Unit := do
  Contract.reads checkVersion
  requireAdmin caller
  Contract.reads requireNotFrozen
  Contract.failIf (isCanonicalSeverity severity = true) .InvalidSeverity
  Contract.reads fun _ => validateGeneralBounds threshold_minutes penalty_per_minute reward_base
  let custom ← Contract.getD .customConfig OrdMap.empty
  let is_update := custom.contains severity
  Contract.set .customConfig
    (custom.set severity ⟨threshold_minutes, penalty_per_minute, reward_base⟩)
  recordConfigUpdate
  recordConfigRegistry
  Contract.publish
    (if is_update then .sevUpd severity threshold_minutes penalty_per_minute reward_base
      else .sevAdd severity threshold_minutes penalty_per_minute reward_base)

/-- `get_config_snapshot`. -/
def getConfigSnapshot (s : Storage) : Except SLAError SLAConfigSnapshot := do
  checkVersion s
  buildConfigSnapshot s

/-- `remove_custom_severity`. -/
def removeCustomSeverity (caller : Address) (severity : Symbol) : Contract Unit := do
  Contract.reads checkVersion
  requireAdmin caller
  Contract.reads requireNotFrozen
  let custom ← Contract.getD .customConfig OrdMap.empty
  Contract.failIf (custom.contains severity = false) .SeverityNotInSet
  Contract.set .customConfig (custom.remove severity)
  Contract.publish (.configRem severity)

end ApexChainx
