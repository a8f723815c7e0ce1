import ApexChainx.Contract.Calls

/-!
# The single-vector contract

The contract before its history was sharded: one vector under `HISTORY_KEY`, with the
`calculate_sla` of `calculation.rs` and the version-2 bodies of `prune_history`,
`prune_history_by_age` and `set_retention_limit` that stand in `history.rs`. Every other entry
point is the one of `ApexChainx.Contract.Calls`.
-/

namespace ApexChainx.SingleVector

open Host Misc

/-- The history vector: `get(&HISTORY_KEY).unwrap_or_else(|| Vec::new(env))`. -/
def history (s : Storage) : List SLAResult := (s .history).getD []

/-- Store the history vector and its cached length. -/
def storeHistory (history : List SLAResult) : Contract Unit := do
  Contract.set .history history
  Contract.set .historyLen history.length

/-! ## Calculation

`calculation.rs` repeats the functions that its `calculate_sla` calls; the bodies are those of
`lib.rs`. -/

/-- `require_not_paused`. -/
abbrev requireNotPaused (s : Storage) : Except SLAError Unit := ApexChainx.requireNotPaused s

/-- `compute_result`; with the machine arithmetic it is `Calculation.computeResult`. -/
abbrev computeResult (outage_id : Symbol) (mttr_minutes : Nat) (cfg : SLAConfig)
    (config_version_hash recorded_at : Nat) : Except SLAError SLAResult :=
  ApexChainx.computeResult outage_id mttr_minutes cfg config_version_hash recorded_at

/-- `record_custom_severity_telemetry`. -/
abbrev recordCustomSeverityTelemetry (met : Bool) : Contract Unit :=
  ApexChainx.recordCustomSeverityTelemetry met

/-- `record_severity_telemetry`. -/
abbrev recordSeverityTelemetry (severity : Symbol) (met : Bool) : Contract Unit :=
  ApexChainx.recordSeverityTelemetry severity met

/-- `increment_stats`. -/
abbrev incrementStats (met : Bool) (reward penalty : Int) : Contract Unit :=
  ApexChainx.incrementStats met reward penalty

/-- `publish_sla_event`. -/
abbrev publishSlaEvent (severity : Symbol) (result : SLAResult) : Contract Unit :=
  Contract.publish (.slaCalc severity result)

/-- `publish_settlement_intent_event`. -/
abbrev publishSettlementIntentEvent (severity : Symbol) (result : SLAResult)
    (correlation_id : BitVec 64) : Contract Unit :=
  Contract.publish (.settleIntent severity result correlation_id)

/-- `publish_duplicate_input_event`: it carries the stored decision only. -/
abbrev publishDuplicateInputEvent (severity : Symbol) (existing : SLAResult) : Contract Unit :=
  Contract.publish (.dupInput severity existing none)

/-- The body of the anti-spam loop of `calculate_sla`: the last entry of the outage so far, and
the number of its entries. -/
def scanEntry (outage_id : Symbol) (acc : Option SLAResult × Nat) (entry : SLAResult) :
    Option SLAResult × Nat :=
  if entry.outage_id = outage_id then (some entry, acc.2 + 1) else acc

/-- The history update of `calculate_sla`: count the entry in `TTOTENT`, append it, and drop the
oldest entry above the retention limit. -/
def appendEntry (history : List SLAResult) (result : SLAResult) : Contract Unit := do
  let history := history ++ [result]
  let prev_total ← Contract.getD .totalEntries 0
  Contract.set .totalEntries (saturatingAdd 32 prev_total 1)
  let retention_limit ← Contract.getD .retentionLimit maxHistorySize
  if history.length > retention_limit then storeHistory (history.drop 1)
  else storeHistory history

/-- The part of `calculate_sla` that stores a fresh decision. -/
def recordDecision (severity : Symbol) (result : SLAResult) (history : List SLAResult) :
    Contract SLAResult := do
  recordSeverityTelemetry severity (result.status ≠ .viol)
  appendEntry history result
  recordStats result
  let ledger_sequence ← Prog.sequence
  let correlation_id := generateCorrelationId result.outage_id ledger_sequence
  publishSlaEvent severity result
  publishSettlementIntentEvent severity result correlation_id
  pure result

/-- `calculate_sla` of `calculation.rs`. -/
def calculateSla (caller : Address) (outage_id severity : Symbol) (mttr_minutes : Nat) :
    Contract SLAResult := do
  Contract.reads checkVersion
  Contract.reads fun _ => validateMttrBound mttr_minutes
  Contract.reads requireNotPaused
  requireOperator caller
  let cfg ← Contract.reads (loadConfig severity)
  let config_version_hash ← Contract.reads (computeSeverityConfigHash severity)
  let now ← Prog.timestamp
  let result ← Contract.reads fun _ =>
    computeResult outage_id mttr_minutes cfg config_version_hash now
  let history ← Contract.getD .history []
  let (existing, stored_for_outage) := history.foldl (scanEntry outage_id) (none, 0)
  match existing with
  | some prev =>
    if prev.config_version_hash = config_version_hash then
      if prev.mttr_minutes ≠ mttr_minutes ∨ prev.threshold_minutes ≠ cfg.threshold_minutes then do
        publishDuplicateInputEvent severity prev
        Prog.fail .DuplicateOutageInput
      else pure prev
    else if stored_for_outage ≥ maxRecalcsPerOutage then Prog.fail .OutageRecalcLimit
    else recordDecision severity result history
  | none => recordDecision severity result history

/-- `calculate_sla_view` of `calculation.rs`, at ledger time `now`. -/
def calculateSlaView (outage_id severity : Symbol) (mttr_minutes now : Nat) (s : Storage) :
    Except SLAError SLAResult := do
  checkVersion s
  validateMttrBound mttr_minutes
  let cfg ← loadConfig severity s
  let config_version_hash ← computeSeverityConfigHash severity s
  let (existing, _) := (history s).foldl (scanEntry outage_id) (none, 0)
  match existing with
  | some prev =>
    if prev.config_version_hash = config_version_hash then
      if prev.mttr_minutes ≠ mttr_minutes ∨ prev.threshold_minutes ≠ cfg.threshold_minutes then
        .error .DuplicateOutageInput
      else .ok prev
    else computeResult outage_id mttr_minutes cfg config_version_hash now
  | none => computeResult outage_id mttr_minutes cfg config_version_hash now

/-! ## History maintenance -/

/-- The trimming that `prune_history` and `set_retention_limit` share: keep the newest `keep`
entries of the vector, and return how many were dropped. -/
def trimHistory (keep : Nat) : Contract Nat := do
  let history ← Contract.getD .history []
  let len := history.length
  if len > keep then do
    storeHistory (history.drop (len - keep))
    pure (len - keep)
  else pure 0

/-- `prune_history`. -/
def pruneHistory (caller : Address) (keep_latest : Nat) : Contract Unit := do
  Contract.reads checkVersion
  requireAdmin caller
  let remove_count ← trimHistory keep_latest
  Contract.publish (.pruned caller remove_count keep_latest)

/-- `prune_history_by_age`. -/
def pruneHistoryByAge (caller : Address) (min_age_seconds : Nat) : Contract Unit := do
  Contract.reads checkVersion
  requireAdmin caller
  let now ← Prog.timestamp
  Contract.failIf (min_age_seconds ≥ now) .InvalidInput
  let cutoff := now - min_age_seconds
  let history ← Contract.getD .history []
  let new_history := history.filter (cutoff ≤ ·.recorded_at)
  let removed := history.length - new_history.length
  if removed > 0 then storeHistory new_history else pure ()
  Contract.publish (.prunedAge caller removed new_history.length)

/-- `set_retention_limit`. -/
def setRetentionLimit (caller : Address) (limit : Nat) : Contract Unit := do
  Contract.reads checkVersion
  requireAdmin caller
  Contract.reads requireNotFrozen
  Contract.failIf (limit = 0 ∨ limit > maxHistorySize) .RetentionLimitOutOfRange
  Contract.set .retentionLimit limit
  Contract.publish (.retLim caller limit)
  let remove_count ← trimHistory limit
  if remove_count > 0 then Contract.publish (.pruned caller remove_count limit) else pure ()

/-- The program of a call. -/
def exec : Call → Contract Reply
  | .calculateSla caller outage_id severity mttr_minutes =>
    replyDecision (calculateSla caller outage_id severity mttr_minutes)
  | .pruneHistory caller keep_latest => replyUnit (pruneHistory caller keep_latest)
  | .pruneHistoryByAge caller min_age => replyUnit (pruneHistoryByAge caller min_age)
  | .setRetentionLimit caller limit => replyUnit (setRetentionLimit caller limit)
  | call => ApexChainx.exec call

/-- The storage a run from a fresh deployment ends in. -/
abbrev after (txs : List ContractTx) : Storage := final exec Store.empty txs

end ApexChainx.SingleVector
