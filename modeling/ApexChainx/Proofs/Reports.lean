import ApexChainx.Proofs.Bundles
import ApexChainx.Proofs.Health
import ApexChainx.Proofs.Initialization
import ApexChainx.Proofs.Projection
import ApexChainx.Proofs.Statistics
import ApexChainx.Proofs.StoredKeys

/-!
# What the status reports say

`healthcheck`, `get_full_audit_state` and `get_contract_state_fingerprint` summarize a deployment
for its monitors. Over every run in which `initialize` succeeds at most once their verdicts are
those of the run: the probe is ready exactly while some call of the admin can succeed, the audit
state can be read exactly then and says what the dedicated getters say, and the fingerprint can be
read once the contract is initialized (`reports_agree`).
-/

namespace ApexChainx

open Host Misc

/-! ## The posture of the contract -/

/-- What the pause switch, the admin and the proposals look like once the contract is initialized,
before and after the admin renounces. -/
structure Posture (renounced : Bool) (s : Storage) : Prop where
  info : (s .pauseInfo).isSome = isPaused s
  marked : s .adminRenounced = if renounced then some true else none
  admin : (s .admin).isSome = !renounced
  vacant : renounced = true → ∀ role, s (.pending role) = none

/-- The event of the admin giving the role up. -/
def Event.isAdminRen : Event → Bool
  | .adminRen _ => true
  | _ => false

/-- The calls that only the admin may make. -/
def Call.isAdminCall : Call → Bool
  | .initializeContract .. | .migrate _ | .acceptAdmin _ | .acceptOperator _ => false
  | .calculateSla .. => false
  | _ => true

section Steps

variable {f : Frame Address} {s s' : Storage} {c : Call} {r : Reply} {evs : List Event}
  {renounced : Bool}

theorem posture_initialized (admin operator : Address) :
    Posture false (initializedStorage Store.empty admin operator) where
  info := by simp [initializedStorage, isPaused]
  marked := by simp [initializedStorage]
  admin := by simp [initializedStorage]
  vacant := fun h => by cases h

/-- Pausing leaves a record of the pause, and unpausing removes it. -/
theorem Effect.pause_info (he : Effect f s c r s' evs) (hinit : c.isInitialize = false)
    (h : (s .pauseInfo).isSome = isPaused s) : (s' .pauseInfo).isSome = isPaused s' := by
  by_cases htouched : c.touches .paused = true
  · cases he <;> simp [Call.touches, History.isHistoryKey, isTelemetryKey, Call.isInitialize]
      at htouched hinit
    case paused => simp [isPaused]
    case unpaused => simp [isPaused]
  · have hinfo : c.touches .pauseInfo = false := by
      cases c <;> simp_all [Call.touches, History.isHistoryKey, isTelemetryKey]
    rw [isPaused, he.frame hinfo, he.frame (by simpa using htouched)]
    exact h

theorem Effect.not_adminRen (he : Effect f s c r s' evs)
    (hc : ∀ caller, c ≠ .renounceAdmin caller) : evs.any Event.isAdminRen = false := by
  cases he
  case renounced => exact absurd rfl (hc _)
  case recorded severity _ _ result _ _ _ _ _ _ =>
    have hclamps : (statsAfter (statsOf s) result).2.any Event.isAdminRen = false := by
      rw [List.any_eq_false]
      intro ev hev
      have hclamp := statsAfter_clamps _ _ ev hev
      cases ev <;> simp_all [Event.isClamp, Event.isAdminRen]
    simp [recordedEvents, hclamps, Event.isAdminRen]
  case customSet =>
    simp only [List.any_cons, List.any_nil, Bool.or_false]
    split <;> rfl
  case retentionSet =>
    simp only [List.any_cons]
    split <;> rfl
  all_goals simp [Event.isAdminRen, droppedEvents]

/-- Only renouncing changes the standing of the admin, and only once. -/
theorem Effect.posture (he : Effect f s c r s' evs) (hinit : c.isInitialize = false)
    (h : Posture renounced s) : Posture (renounced || evs.any Event.isAdminRen) s' := by
  have hinfo := he.pause_info hinit h.info
  cases renounced with
  | true =>
    -- under the mark only a calculation goes through, and it keeps the roles
    obtain ⟨caller, outage_id, severity, mttr, rfl⟩ := he.under_mark hinit
      (by simp [h.marked]) (by simpa using h.admin) (h.vacant rfl)
    refine ⟨hinfo, ?_, ?_, ?_⟩
    · rw [he.frame rfl, h.marked]
      rfl
    · rw [he.frame rfl, h.admin]
      rfl
    · intro _ role
      rw [he.frame rfl, h.vacant rfl]
  | false =>
    by_cases hrenounce : ∃ caller, c = .renounceAdmin caller
    · obtain ⟨caller, rfl⟩ := hrenounce
      cases he
      obtain ⟨hmark, hadmin, hpending⟩ := renounced_storage s
      have hevent : (droppedEvents s caller ++ [Event.adminRen caller]).any Event.isAdminRen =
          true := by simp [Event.isAdminRen]
      exact ⟨hinfo, by rw [hmark, hevent]; rfl, by rw [hadmin, hevent]; rfl, fun _ => hpending⟩
    · obtain ⟨hmark, hadmin⟩ := he.standing hinit (not_exists.mp hrenounce)
      rw [he.not_adminRen (not_exists.mp hrenounce)]
      refine ⟨hinfo, hmark.trans h.marked, hadmin (by rw [h.admin]; rfl), ?_⟩
      simp

end Steps

/-- The posture after a run is that of its log of events. -/
theorem posture_after {txs : List ContractTx} (hone : initializations txs = 1) :
    Posture ((committed exec Store.empty txs).any Event.isAdminRen) (after txs) := by
  refine committed_induction (P := fun evs s => Posture (evs.any Event.isAdminRen) s)
    posture_initialized ?_ txs hone
  intro evs s f c r s' new hP he hc
  rw [List.any_append]
  exact he.posture hc hP

/-! ## The reports -/

/-- The audit state says what the dedicated getters say; `pause_info` is there exactly while the
contract is paused. -/
structure AuditAgrees (s : Storage) (a : AuditState) : Prop where
  admin : getAdmin s = .ok a.admin
  operator : getOperator s = .ok a.operator
  pending_admin : getPendingAdmin s = .ok a.pending_admin
  pending_operator : getPendingOperator s = .ok a.pending_operator
  paused : Lib.isPaused s = .ok a.paused
  config_frozen : Lib.isConfigFrozen s = .ok a.config_frozen
  pause_info : getPauseInfo s = .ok a.pause_info.head?
  single : a.pause_info.length = if a.paused then 1 else 0
  config_snapshot : getConfigSnapshot s = .ok a.config_snapshot
  stats : getStats s = .ok a.stats
  history_len : ∃ history, getHistory s = .ok history ∧ a.history_len = history.length
  result_schema : getResultSchema s = .ok a.result_schema

/-- The fingerprint taken at `now` says what the dedicated getters say. -/
structure FingerprintAgrees (s : Storage) (now : Nat) (fp : ContractStateFingerprint) : Prop where
  storage_version : getStorageVersion s = .ok fp.storage_version
  config_version_hash : getConfigVersionHash s = .ok fp.config_version_hash
  is_paused : Lib.isPaused s = .ok fp.is_paused
  is_config_frozen : Lib.isConfigFrozen s = .ok fp.is_config_frozen
  migration : getMigrationState s = .ok ⟨fp.storage_version, storageVersion, fp.needs_migration⟩
  current : fp.needs_migration = false
  captured_at : fp.captured_at = now

/-- The configuration bundle says what the dedicated getters say. -/
structure BundleAgrees (s : Storage) (b : ConfigBundle) : Prop where
  snapshot : getConfigSnapshot s = .ok b.snapshot
  schema : getResultSchema s = .ok b.schema
  config_version_hash : getConfigVersionHash s = .ok b.config_version_hash

/-- What the reports say after a run. -/
structure ReportsAgree (txs : List ContractTx) : Prop where
  status : (healthcheck (after txs)).status =
    if initializations txs = 0 then .noinit
    else if (committed exec Store.empty txs).any Event.isAdminRen then .noadmin else .ok
  ready : (healthcheck (after txs)).ready = true ↔
    ∃ tx : ContractTx, tx.call.isAdminCall = true ∧ succeeds ⟨after txs, tx⟩ = true
  audited : (healthcheck (after txs)).ready = true →
    ∃ a, getFullAuditState (after txs) = .ok a ∧ AuditAgrees (after txs) a ∧
      a.stats = tally (recorded txs)
  unaudited : (healthcheck (after txs)).ready = false →
    getFullAuditState (after txs) = .error .NotInitialized
  fingerprint : ∀ now, initializations txs ≠ 0 →
    ∃ fp, getContractStateFingerprint now (after txs) = .ok fp ∧
      FingerprintAgrees (after txs) now fp
  unfingerprinted : ∀ now, initializations txs = 0 →
    getContractStateFingerprint now (after txs) = .error .NotInitialized
  bundled : initializations txs ≠ 0 →
    ∃ b, getConfigBundle (after txs) = .ok (some b) ∧ BundleAgrees (after txs) b
  unbundled : initializations txs = 0 → getConfigBundle (after txs) = .error .NotInitialized

section Reports

variable {s : Storage}

/-- A call of the admin that succeeds was made by a standing admin. -/
theorem standing_of_adminCall (hc : Current s) {tx : ContractTx}
    (hcall : tx.call.isAdminCall = true) (hsucceeds : succeeds ⟨s, tx⟩ = true) :
    ∃ caller, ByAdmin tx.frame s caller := by
  obtain ⟨r, s', evs, he, -⟩ := effect_of_succeeds hc hsucceeds
  generalize tx.call = c at he hcall
  cases he <;> simp only [Call.isAdminCall, Bool.false_eq_true] at hcall
  all_goals exact ⟨_, by assumption⟩

/-- A standing admin can prune the history. -/
theorem adminCall_of_standing {f : Frame Address} {caller : Address} (h : ByAdmin f s caller) :
    ∃ tx : ContractTx, tx.call.isAdminCall = true ∧ succeeds ⟨s, tx⟩ = true := by
  obtain ⟨env', hreturns⟩ := pruneHistory_returns h 0
  exact ⟨⟨.pruneHistory caller 0, f⟩, rfl,
    succeeds_of_returns (r := .unit) (returns_replyUnit.mpr ⟨rfl, hreturns⟩)⟩

theorem Healthy.fingerprint (h : Healthy s) (now : Nat) :
    ∃ fp, getContractStateFingerprint now s = .ok fp ∧ FingerprintAgrees s now fp := by
  obtain ⟨hash, snapshot, hhash, -⟩ := h.config.bundle
  have hcheck := h.checkVersion_ok
  refine ⟨⟨contractName, storageVersion, resultSchemaVersion, hash, isPaused s, false,
    isConfigFrozen s, now⟩, ?_, ?_⟩
  · simp only [getContractStateFingerprint, h.version, okOr_some, ok_bind, hhash]
    rfl
  · constructor
    case storage_version => simp [getStorageVersion, h.version]
    case config_version_hash => simp [getConfigVersionHash, hcheck, hhash]
    case is_paused => simp [Lib.isPaused, hcheck]
    case is_config_frozen => simp [Lib.isConfigFrozen, hcheck]
    case migration => simp [getMigrationState, h.version]
    case current => rfl
    case captured_at => rfl

theorem Healthy.bundle (h : Healthy s) :
    ∃ b, getConfigBundle s = .ok (some b) ∧ BundleAgrees s b := by
  obtain ⟨hash, snapshot, hhash, hsnapshot⟩ := h.config.bundle
  have hcheck := h.checkVersion_ok
  have hread : getConfigSnapshot s = .ok snapshot := by simp [getConfigSnapshot, hcheck, hsnapshot]
  have hschema : getResultSchema s = .ok resultSchema := by simp [getResultSchema, hcheck]
  refine ⟨⟨snapshot, resultSchema, hash⟩, ?_, hread, hschema, ?_⟩
  · simp only [getConfigBundle, hread, hschema, hhash, ok_bind]
    rfl
  · simp [getConfigVersionHash, hcheck, hhash]

/-- While the admin stands the audit state is read field by field. -/
theorem Healthy.audit (h : Healthy s) (hhistory : s .historyLen = some (History.len s))
    (hinfo : (s .pauseInfo).isSome = isPaused s) {admin operator : Address} {stats : SLAStats}
    (hadmin : s .admin = some admin) (hoperator : s .operator = some operator)
    (hstats : s .stats = some stats) :
    ∃ a, getFullAuditState s = .ok a ∧ AuditAgrees s a ∧ a.stats = stats := by
  obtain ⟨hash, snapshot, -, hsnapshot⟩ := h.config.bundle
  have hcheck := h.checkVersion_ok
  refine ⟨{
    admin, operator, stats
    pending_admin := s (.pending .admin)
    pending_operator := s (.pending .operator)
    paused := isPaused s
    config_frozen := isConfigFrozen s
    pause_info := (s .pauseInfo).toList
    config_snapshot := snapshot
    history_len := History.len s
    result_schema := resultSchema }, ?_, ?_, rfl⟩
  · simp only [getFullAuditState, hcheck, hadmin, hoperator, hsnapshot, hstats, hhistory, okOr_some,
      ok_bind]
    rfl
  · constructor
    case admin => simp [getAdmin, hcheck, hadmin]
    case operator => simp [getOperator, hcheck, hoperator]
    case pending_admin => simp [getPendingAdmin, getPending, hcheck]
    case pending_operator => simp [getPendingOperator, getPending, hcheck]
    case paused => simp [Lib.isPaused, hcheck]
    case config_frozen => simp [Lib.isConfigFrozen, hcheck]
    case pause_info => simp [getPauseInfo, hcheck]
    case single => rw [← hinfo]; cases s .pauseInfo <;> rfl
    case config_snapshot => simp [getConfigSnapshot, hcheck, hsnapshot]
    case stats => simp [getStats, hcheck, hstats]
    case history_len =>
      refine ⟨_, h.getHistory_ok, ?_⟩
      rw [length_readAllEntries h.regular.sound]
    case result_schema => simp [getResultSchema, hcheck]

/-- The probe reports the posture. -/
theorem Posture.healthcheck_eq {renounced : Bool} (hp : Posture renounced s)
    (hversion : s .storageVersion = some storageVersion) :
    healthcheck s = ⟨!renounced, contractName, if renounced then .noadmin else .ok⟩ := by
  cases renounced <;> simp [healthcheck, hversion, hp.marked]

end Reports

/-- Before `initialize` the reports say so. -/
theorem reportsAgree_fresh {txs : List ContractTx} (hnone : initializations txs = 0) :
    ReportsAgree txs := by
  have hempty : after txs = Store.empty := after_eq_empty hnone
  constructor
  case status => rw [hempty, if_pos hnone]; rfl
  case ready =>
    refine iff_of_false (by rw [hempty]; simp [healthcheck]) ?_
    rintro ⟨tx, hcall, hsucceeds⟩
    obtain ⟨caller, h⟩ := standing_of_adminCall (current_after txs) hcall hsucceeds
    have hversion := h.version
    rw [hempty] at hversion
    cases hversion
  case audited => intro hready; rw [hempty] at hready; cases hready
  case unaudited => intro _; rw [hempty]; rfl
  case fingerprint => exact fun now h => absurd hnone h
  case unfingerprinted => intro now _; rw [hempty]; rfl
  case bundled => exact fun h => absurd hnone h
  case unbundled => intro _; rw [hempty]; rfl

/-- Over every run in which `initialize` succeeds at most once, the probe, the audit state, the
fingerprint and the configuration bundle agree with the run, with the getters and with what the
admin may still do. -/
theorem reports_agree (txs : List ContractTx) (honce : initializations txs ≤ 1)
    (hfew : (recorded txs).length < 2 ^ 32) : ReportsAgree txs := by
  rcases Nat.le_one_iff_eq_zero_or_eq_one.mp honce with hnone | hone
  · exact reportsAgree_fresh hnone
  have hinit : 0 < initializations txs := by omega
  have hs : Healthy (after txs) := healthy_of_stored (configSound_after hinit).version
  have hposture := posture_after hone
  have hhealth := hposture.healthcheck_eq hs.version
  have hadmin : (healthcheck (after txs)).ready = (after txs .admin).isSome := by
    rw [hposture.admin, hhealth]
  have hstarted : initializations txs ≠ 0 := by omega
  constructor
  case status => rw [hhealth, if_neg hstarted]
  case ready =>
    constructor
    · intro hready
      have hmark := hposture.marked
      rw [hadmin, Option.isSome_iff_exists] at hready
      obtain ⟨admin, hstored⟩ := hready
      have hstands := hposture.admin
      simp only [hstored, Option.isSome_some, Bool.true_eq, Bool.not_eq_true'] at hstands
      rw [hstands] at hmark
      exact adminCall_of_standing (f := ⟨[admin], 0, 0⟩) ⟨hs.version, by simp, hmark, hstored⟩
    · rintro ⟨tx, hcall, hsucceeds⟩
      obtain ⟨caller, h⟩ := standing_of_adminCall (current_after txs) hcall hsucceeds
      rw [hadmin, h.admin]
      rfl
  case audited =>
    intro hready
    rw [hadmin, Option.isSome_iff_exists] at hready
    obtain ⟨admin, hstored⟩ := hready
    obtain ⟨operator, hoperator⟩ := Option.isSome_iff_exists.mp
      (eager_after hs.ne_empty (show isEagerKey .operator = true from rfl))
    exact hs.audit (historyExact_after hone hfew).1.historyLen hposture.info hstored hoperator
      (statsExact_after hone (by omega)).stats
  case unaudited =>
    intro hready
    rw [hadmin, Option.isSome_eq_false_iff, Option.isNone_iff_eq_none] at hready
    simp only [getFullAuditState, hs.checkVersion_ok, hready, okOr_none, ok_bind, error_bind]
  case fingerprint => exact fun now _ => hs.fingerprint now
  case unfingerprinted => exact fun now hnone => absurd hnone hstarted
  case bundled => exact fun _ => hs.bundle
  case unbundled => exact fun hnone => absurd hnone hstarted

theorem reports_agree_busyRun : ReportsAgree busyRun :=
  reports_agree busyRun (by decide) (by decide)

end ApexChainx
