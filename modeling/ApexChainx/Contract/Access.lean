import ApexChainx.Contract.Storage
import ApexChainx.Misc.Results

/-!
# Guards

The checks the entry points run first: storage version, roles, pause and freeze (`lib.rs`,
`config_freeze.rs`).
-/

namespace ApexChainx

open Host Misc

/-- `check_version`. -/
def checkVersion (s : Storage) : Except SLAError Unit := do
  let v ← okOr (s .storageVersion) .NotInitialized
  refuseIf (v ≠ storageVersion) .VersionMismatch

/-- `require_admin`. -/
def requireAdmin (caller : Address) : Contract Unit := do
  Prog.requireAuth caller
  let renounced ← Contract.has .adminRenounced
  Contract.failIf (renounced = true) .AdminRenounced
  let admin ← Contract.getOr .admin .NotInitialized
  Contract.failIf (caller ≠ admin) .Unauthorized

/-- `require_operator`. -/
def requireOperator (caller : Address) : Contract Unit := do
  Prog.requireAuth caller
  let operator ← Contract.getOr .operator .NotInitialized
  Contract.failIf (caller ≠ operator) .Unauthorized

/-- The pause flag, `false` when it was never stored. -/
def isPaused (s : Storage) : Bool := (s .paused).getD false

/-- `require_not_paused`. -/
def requireNotPaused (s : Storage) : Except SLAError Unit :=
  refuseIf (isPaused s = true) .ContractPaused

/-- `is_config_frozen`. -/
def isConfigFrozen (s : Storage) : Bool := (s .freeze).getD false

/-- `require_not_frozen`. -/
def requireNotFrozen (s : Storage) : Except SLAError Unit :=
  refuseIf (isConfigFrozen s = true) .ConfigFrozen

/-- `validate_mttr_bound`. -/
def validateMttrBound (mttr_minutes : Nat) : Except SLAError Unit :=
  refuseIf (mttr_minutes > maxMttr) .InvalidInput

/-- `config_freeze::freeze_config`: whether the flag changed. -/
def freezeFlag : Contract Bool := do
  let frozen ← Contract.ask isConfigFrozen
  if frozen then pure false
  else do
    Contract.set .freeze true
    pure true

/-- `config_freeze::unfreeze_config`: whether the flag changed. -/
def unfreezeFlag : Contract Bool := do
  let frozen ← Contract.ask isConfigFrozen
  if frozen then do
    Contract.set .freeze false
    pure true
  else pure false

end ApexChainx
