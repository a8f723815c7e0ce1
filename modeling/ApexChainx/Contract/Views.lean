import ApexChainx.Contract.Lifecycle

/-!
# Configuration reads

The read-only entry points that report the configuration, its fingerprint and its history
(`lib.rs`, `config_metadata.rs`).
-/

namespace ApexChainx

open Misc

/-- `get_config`. -/
def getConfig (severity : Symbol) (s : Storage) : Except SLAError SLAConfig := do
  checkVersion s
  loadConfig severity s

/-- `get_custom_severity`. -/
def getCustomSeverity (severity : Symbol) (s : Storage) : Except SLAError SLAConfig := do
  checkVersion s
  okOr ((customConfigs s).get severity) .SeverityNotInSet

theorem snapshotVersion_wellFormed :
    "v1".toList.length ≤ 32 ∧ "v1".toList.all isSymbolChar = true := by decide

/-- `get_custom_config_snapshot`. -/
def getCustomConfigSnapshot (s : Storage) : Except SLAError SLAConfigSnapshot := do
  checkVersion s
  let entries := (customConfigs s).entries.map fun e => SLAConfigEntry.mk e.1 e.2
  pure ⟨symbolShort "v1" snapshotVersion_wellFormed, entries⟩

/-- `get_config_version_hash`. -/
def getConfigVersionHash (s : Storage) : Except SLAError Nat := do
  checkVersion s
  computeConfigVersionHash s

/-- `get_config_snapshot_by_version`. -/
def getConfigSnapshotByVersion (hash : Nat) (s : Storage) :
    Except SLAError (Option SLAConfigSnapshot) := do
  checkVersion s
  let registry := (s .configRegistry).getD OrdMap.empty
  pure (registry.get hash)

/-- `get_last_config_update`; the update is its ledger sequence. -/
def getLastConfigUpdate (s : Storage) : Except SLAError (Option Nat) := do
  checkVersion s
  pure (s .lastCfgUpdate)

end ApexChainx
