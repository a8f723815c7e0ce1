import ApexChainx.Contract.VersionNegotiation
import ApexChainx.Contract.Views

/-!
# Reads of the state

The read-only entry points of `lib.rs` that report roles, pause and freeze, statistics, history,
versions and readiness, and the two that report the state as a whole: `get_full_audit_state` and
`get_contract_state_fingerprint`. For the history methods the version-3 body is the one embedded.
-/

namespace ApexChainx

open Misc

/-! ## Roles, pause, freeze, statistics -/

/-- `get_admin`. -/
def getAdmin (s : Storage) : Except SLAError Address := do
  checkVersion s
  okOr (s .admin) .NotInitialized

/-- `get_operator`. -/
def getOperator (s : Storage) : Except SLAError Address := do
  checkVersion s
  okOr (s .operator) .NotInitialized

/-- `get_pending_admin` and `get_pending_operator`. -/
def getPending (role : Role) (s : Storage) : Except SLAError (Option Address) := do
  checkVersion s
  pure (s (.pending role))

/-- `get_pending_admin`. -/
def getPendingAdmin (s : Storage) : Except SLAError (Option Address) := getPending .admin s

/-- `get_pending_operator`. -/
def getPendingOperator (s : Storage) : Except SLAError (Option Address) := getPending .operator s

/-- The entry point `is_paused`. -/
def Lib.isPaused (s : Storage) : Except SLAError Bool := do
  checkVersion s
  pure (ApexChainx.isPaused s)

/-- `get_pause_info`. -/
def getPauseInfo (s : Storage) : Except SLAError (Option PauseInfo) := do
  checkVersion s
  pure (s .pauseInfo)

/-- The entry point `is_config_frozen`. -/
def Lib.isConfigFrozen (s : Storage) : Except SLAError Bool := do
  checkVersion s
  pure (ApexChainx.isConfigFrozen s)

/-- `get_stats`. -/
def getStats (s : Storage) : Except SLAError SLAStats := do
  checkVersion s
  okOr (s .stats) .NotInitialized

/-! ## History -/

/-- `get_history`. -/
def getHistory (s : Storage) : Except SLAError (List SLAResult) := do
  checkVersion s
  pure (History.readAllEntries s)

/-- `get_history_by_outage`. -/
def getHistoryByOutage (outage_id : Symbol) (s : Storage) : Except SLAError (List SLAResult) := do
  checkVersion s
  pure (History.entriesForOutage s outage_id)

/-- `get_latest_by_outage`. -/
def getLatestByOutage (outage_id : Symbol) (s : Storage) :
    Except SLAError (Option SLAResult) := do
  checkVersion s
  pure (History.latestForOutage s outage_id)

/-! ## Versions and readiness -/

theorem contractName_wellFormed :
    "sla_calc".toList.length ≤ 32 ∧ "sla_calc".toList.all isSymbolChar = true := by decide

/-- The `contract_name` that the reports carry. -/
def contractName : Symbol := symbolShort "sla_calc" contractName_wellFormed

/-- `StorageVersionInfo`. -/
structure StorageVersionInfo where
  stored_version : Nat
  expected_version : Nat
  needs_migration : Bool
  deriving DecidableEq, Repr

/-- `VersionInfo`. -/
structure VersionInfo where
  storage_version : Nat
  result_schema_version : Nat
  needs_migration : Bool
  is_paused : Bool
  contract_name : Symbol
  deriving DecidableEq, Repr

/-- `HealthcheckResult.status`: `"noinit"`, `"migrate"`, `"noadmin"` or `"ok"`. -/
inductive HealthStatus where
  | noinit
  | migrate
  | noadmin
  | ok
  deriving DecidableEq, Repr

/-- `HealthcheckResult`. -/
structure HealthcheckResult where
  ready : Bool
  contract_name : Symbol
  status : HealthStatus
  deriving DecidableEq, Repr

/-- `get_storage_version`. -/
def getStorageVersion (s : Storage) : Except SLAError Nat := .ok ((s .storageVersion).getD 0)

/-- `storage_version::is_migration_complete`. -/
def isMigrationComplete (s : Storage) : Bool := s .storageVersion = some storageVersion

/-- `get_migration_state`. -/
def getMigrationState (s : Storage) : Except SLAError StorageVersionInfo := do
  let stored_version ← okOr (s .storageVersion) .NotInitialized
  pure ⟨stored_version, storageVersion, stored_version ≠ storageVersion⟩

/-- `get_version_info`. -/
def getVersionInfo (s : Storage) : Except SLAError VersionInfo := do
  let stored_version ← okOr (s .storageVersion) .NotInitialized
  pure ⟨stored_version, resultSchemaVersion, stored_version ≠ storageVersion,
    ApexChainx.isPaused s, contractName⟩

/-- `get_version_negotiation_info`. -/
def getVersionNegotiationInfo (s : Storage) : Except SLAError VersionNegotiationInfo := do
  let stored_version ← okOr (s .storageVersion) .NotInitialized
  pure (buildNegotiationInfo stored_version storageVersion (ApexChainx.isPaused s))

/-- `healthcheck`. -/
def healthcheck (s : Storage) : HealthcheckResult :=
  let (ready, status) :=
    match s .storageVersion with
    | none => (false, .noinit)
    | some v =>
      if v ≠ storageVersion then (false, .migrate)
      else if s .adminRenounced = some true then (false, .noadmin)
      else (true, .ok)
  ⟨ready, contractName, status⟩

/-! ## The state as a whole -/

/-- `ContractStateFingerprint`. -/
structure ContractStateFingerprint where
  contract_name : Symbol
  storage_version : Nat
  result_schema_version : Nat
  config_version_hash : Nat
  is_paused : Bool
  needs_migration : Bool
  is_config_frozen : Bool
  captured_at : Nat
  deriving DecidableEq, Repr

/-- `get_contract_state_fingerprint`, at ledger time `now`. -/
def getContractStateFingerprint (now : Nat) (s : Storage) :
    Except SLAError ContractStateFingerprint := do
  let stored_version ← okOr (s .storageVersion) .NotInitialized
  let needs_migration := stored_version ≠ storageVersion
  let config_version_hash ← computeConfigVersionHash s
  pure ⟨contractName, stored_version, resultSchemaVersion, config_version_hash,
    ApexChainx.isPaused s, needs_migration, ApexChainx.isConfigFrozen s, now⟩

/-- `DeprecatedSymbol`. -/
structure DeprecatedSymbol where
  old_symbol : Symbol
  new_symbol : Symbol
  deprecated_at : Nat
  removal_version : Option Nat
  deriving DecidableEq, Repr

/-- `SeverityAliasMapping`. -/
structure SeverityAliasMapping where
  old_severity : Symbol
  new_severity : Symbol
  deprecated_at : Nat
  removal_version : Option Nat
  deriving DecidableEq, Repr

/-- `SLAResultSchema`. -/
structure SLAResultSchema where
  version : Symbol
  schema_version : Nat
  result_field_count : Nat
  status_met : Status
  status_violated : Status
  payment_reward : PaymentType
  payment_penalty : PaymentType
  rating_exceptional : Rating
  rating_excellent : Rating
  rating_good : Rating
  rating_poor : Rating
  includes_config_version_hash : Bool
  deprecated_symbols : List DeprecatedSymbol
  severity_aliases : List SeverityAliasMapping
  deriving DecidableEq, Repr

/-- `RESULT_SCHEMA_FIELD_COUNT`. -/
def resultSchemaFieldCount : Nat := 9

/-- The schema that `get_result_schema` and `get_full_audit_state` build. -/
def resultSchema : SLAResultSchema where
  version := eventVersion
  schema_version := resultSchemaVersion
  result_field_count := resultSchemaFieldCount
  status_met := .met
  status_violated := .viol
  payment_reward := .rew
  payment_penalty := .pen
  rating_exceptional := .top
  rating_excellent := .excel
  rating_good := .good
  rating_poor := .poor
  includes_config_version_hash := true
  deprecated_symbols := []
  severity_aliases := []

/-- `get_result_schema`. -/
def getResultSchema (s : Storage) : Except SLAError SLAResultSchema := do
  checkVersion s
  pure resultSchema

/-- `ConfigBundle`. -/
structure ConfigBundle where
  snapshot : SLAConfigSnapshot
  schema : SLAResultSchema
  config_version_hash : Nat
  deriving DecidableEq, Repr

/-- `get_config_bundle`. -/
def getConfigBundle (s : Storage) : Except SLAError (Option ConfigBundle) := do
  let snapshot ← getConfigSnapshot s
  let schema ← getResultSchema s
  let config_version_hash ← computeConfigVersionHash s
  pure (some ⟨snapshot, schema, config_version_hash⟩)

/-- `AuditState`; `pause_info` is empty when absent. -/
structure AuditState where
  admin : Address
  operator : Address
  pending_admin : Option Address
  pending_operator : Option Address
  paused : Bool
  config_frozen : Bool
  pause_info : List PauseInfo
  config_snapshot : SLAConfigSnapshot
  stats : SLAStats
  history_len : Nat
  result_schema : SLAResultSchema
  deriving DecidableEq, Repr

/-- `get_full_audit_state`. -/
def getFullAuditState (s : Storage) : Except SLAError AuditState := do
  checkVersion s
  let admin ← okOr (s .admin) .NotInitialized
  let operator ← okOr (s .operator) .NotInitialized
  let config_snapshot ← buildConfigSnapshot s
  let stats ← okOr (s .stats) .NotInitialized
  pure {
    admin, operator
    pending_admin := s (.pending .admin)
    pending_operator := s (.pending .operator)
    paused := ApexChainx.isPaused s
    config_frozen := ApexChainx.isConfigFrozen s
    pause_info := (s .pauseInfo).toList
    config_snapshot, stats
    history_len := (s .historyLen).getD 0
    result_schema := resultSchema }

end ApexChainx
