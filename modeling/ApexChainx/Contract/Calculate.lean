import ApexChainx.Contract.Access
import ApexChainx.Contract.Compute
import ApexChainx.Contract.History
import ApexChainx.Contract.Telemetry

/-!
# SLA calculation and history maintenance

The three SLA paths of `lib.rs` and its history entry points. Where the version-2 fragments of
an earlier single-vector history stand between the lines of a version-3 body, the version-3
body is the one embedded.
-/

namespace ApexChainx

open Host Misc

/-! ## The read-only paths -/

/-- `calculate_sla_view`, at ledger time `now`. -/
def calculateSlaView (outage_id severity : Symbol) (mttr_minutes now : Nat) (s : Storage) :
    Except SLAError SLAResult := do
  checkVersion s
  validateMttrBound mttr_minutes
  let cfg ← loadConfig severity s
  let config_version_hash ← computeSeverityConfigHash severity s
  match History.latestForOutage s outage_id with
  | some prev =>
    if prev.config_version_hash = config_version_hash then
      if prev.mttr_minutes ≠ mttr_minutes ∨ prev.threshold_minutes ≠ cfg.threshold_minutes then
        .error .DuplicateOutageInput
      else .ok prev
    else computeResult outage_id mttr_minutes cfg config_version_hash now
  | none => computeResult outage_id mttr_minutes cfg config_version_hash now

/-- `replay_calculate_sla`. -/
def replayCalculateSla (outage_id severity : Symbol) (mttr_minutes recorded_at_ledger : Nat)
    (s : Storage) : Except SLAError (SLAResult × Nat) := do
  checkVersion s
  validateMttrBound mttr_minutes
  let cfg ← loadConfig severity s
  let config_version_hash ← computeSeverityConfigHash severity s
  let result ← computeResult outage_id mttr_minutes cfg config_version_hash recorded_at_ledger
  pure (result, config_version_hash)

/-! ## The mutating path -/

/-- The statistics update of `calculate_sla`; a penalty is passed positive. -/
def recordStats (result : SLAResult) : Contract Unit :=
  if result.status = .viol then incrementStats false 0 (-result.amount)
  else incrementStats true result.amount 0

/-- The part of `calculate_sla` that stores a fresh decision: telemetry, history, statistics
and the two events. -/
def recordDecision (severity : Symbol) (result : SLAResult) (outage_indices : List Nat) :
    Contract SLAResult := do
  recordSeverityTelemetry severity (result.status ≠ .viol)
  let retention_limit ← Contract.getD .retentionLimit maxHistorySize
  History.appendEntry result retention_limit outage_indices
  recordStats result
  let ledger_sequence ← Prog.sequence
  let correlation_id := generateCorrelationId result.outage_id ledger_sequence
  Contract.publish (.slaCalc severity result)
  Contract.publish (.settleIntent severity result correlation_id)
  pure result

/-- `calculate_sla`. -/
def calculateSla (caller : Address) (outage_id severity : Symbol) (mttr_minutes : Nat) :
    Contract SLAResult := do
  Contract.reads checkVersion
  Contract.reads fun _ => validateMttrBound mttr_minutes
  Contract.reads requireNotPaused
  requireOperator caller
  let cfg ← Contract.reads (loadConfig severity)
  let config_version_hash ← Contract.reads (computeSeverityConfigHash severity)
  let now ← Prog.timestamp
  let result ← Contract.reads fun _ =>
    computeResult outage_id mttr_minutes cfg config_version_hash now
  let outage_indices ← Contract.ask (History.entryIndicesForOutage · outage_id)
  let stored_for_outage := outage_indices.length
  let existing ← Contract.ask fun s => outage_indices.getLast?.bind (History.readEntry s)
  match existing with
  | some prev =>
    if prev.config_version_hash = config_version_hash then
      if prev.mttr_minutes ≠ mttr_minutes ∨ prev.threshold_minutes ≠ cfg.threshold_minutes then do
        Contract.publish
          (.dupInput severity prev (some (mttr_minutes, cfg.threshold_minutes)))
        Prog.fail .DuplicateOutageInput
      else pure prev
    else if stored_for_outage ≥ maxRecalcsPerOutage then Prog.fail .OutageRecalcLimit
    else recordDecision severity result outage_indices
  | none => recordDecision severity result outage_indices

/-! ## History maintenance -/

/-- `prune_history`. -/
def pruneHistory (caller : Address) (keep_latest : Nat) : Contract Unit := do
  Contract.reads checkVersion
  requireAdmin caller
  let remove_count ← History.pruneOldest keep_latest
  Contract.publish (.pruned caller remove_count keep_latest)

/-- `prune_history_by_age`. -/
def pruneHistoryByAge (caller : Address) (min_age_seconds : Nat) : Contract Unit := do
  Contract.reads checkVersion
  requireAdmin caller
  let now ← Prog.timestamp
  Contract.failIf (min_age_seconds ≥ now) .InvalidInput
  let cutoff := now - min_age_seconds
  let history ← Contract.ask History.readAllEntries
  let new_history := history.filter (cutoff ≤ ·.recorded_at)
  let removed := history.length - new_history.length
  if removed > 0 then History.rebuildHistory new_history else pure ()
  Contract.publish (.prunedAge caller removed new_history.length)

/-- `set_retention_limit`. -/
def setRetentionLimit (caller : Address) (limit : Nat) : Contract Unit := do
  Contract.reads checkVersion
  requireAdmin caller
  Contract.reads requireNotFrozen
  Contract.failIf (limit = 0 ∨ limit > maxHistorySize) .RetentionLimitOutOfRange
  Contract.set .retentionLimit limit
  Contract.publish (.retLim caller limit)
  let remove_count ← History.pruneOldest limit
  if remove_count > 0 then Contract.publish (.pruned caller remove_count limit) else pure ()

end ApexChainx
