import ApexChainx.Contract.Lifecycle

/-!
# The configuration module

The copies of the configuration updates in `config.rs`. They take no caller, since whoever calls
them has checked the admin.
-/

namespace ApexChainx.Config

open Host Misc

/-- `require_not_frozen`. -/
def requireNotFrozen (s : Storage) : Except SLAError Unit :=
  refuseIf (isConfigFrozen s = true) .ConfigFrozen

/-- `set_config`. It announces a check of the penalty ordering, but makes none. -/
def setConfig (severity : Symbol) (threshold_minutes : Nat)
    (penalty_per_minute reward_base : Int) : Contract Unit := do
  Contract.reads checkVersion
  Contract.reads requireNotFrozen
  Contract.reads fun _ => validateConfig severity threshold_minutes penalty_per_minute reward_base
  Contract.reads (validateCrossSeverityThresholdOrdering severity threshold_minutes)
  let configs ← Contract.getOr .config .NotInitialized
  let configs := configs.set severity ⟨threshold_minutes, penalty_per_minute, reward_base⟩
  Contract.set .config configs
  recordConfigUpdate
  Contract.publish (.configUpd severity threshold_minutes penalty_per_minute reward_base)

/-- `set_custom_severity`. -/
def setCustomSeverity (severity : Symbol) (threshold_minutes : Nat)
    (penalty_per_minute reward_base : Int) : Contract Unit := do
  Contract.reads checkVersion
  Contract.reads requireNotFrozen
  Contract.failIf (isCanonicalSeverity severity = true) .InvalidSeverity
  Contract.reads fun _ => validateGeneralBounds threshold_minutes penalty_per_minute reward_base
  let custom ← Contract.getD .customConfig OrdMap.empty
  let is_update := custom.contains severity
  Contract.set .customConfig
    (custom.set severity ⟨threshold_minutes, penalty_per_minute, reward_base⟩)
  Contract.publish
    (if is_update then .sevUpd severity threshold_minutes penalty_per_minute reward_base
      else .sevAdd severity threshold_minutes penalty_per_minute reward_base)

/-- `remove_custom_severity`. -/
def removeCustomSeverity (severity : Symbol) : Contract Unit := do
  Contract.reads checkVersion
  Contract.reads requireNotFrozen
  let custom ← Contract.getD .customConfig OrdMap.empty
  Contract.failIf (custom.contains severity = false) .SeverityNotInSet
  Contract.set .customConfig (custom.remove severity)
  Contract.publish (.configRem severity)

end ApexChainx.Config
