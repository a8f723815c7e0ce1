import ApexChainx.Contract.Calls
import ApexChainx.Proofs.Recording

/-!
# What a call can do

`Effect f s c r s' evs` lists, entry point by entry point, the ways a call `c` that the host
runs in the frame `f` on the storage `s` can succeed: the conditions it needs, its reply `r`,
the storage `s'` it leaves and the events `evs` it publishes. Every successful call is one of
them (`returns_effect`), so an invariant of the contract is a case analysis over effects.
-/

namespace ApexChainx

open Host Misc

/-- The call is authorized by the standing admin, on the current storage version. -/
structure ByAdmin (f : Frame Address) (s : Storage) (caller : Address) : Prop where
  version : s .storageVersion = some storageVersion
  signed : caller ∈ f.auths
  standing : s .adminRenounced = none
  admin : s .admin = some caller

/-- The call is authorized by the operator, and the contract is not paused. -/
structure ByOperator (f : Frame Address) (s : Storage) (caller : Address) : Prop where
  version : s .storageVersion = some storageVersion
  unpaused : isPaused s = false
  signed : caller ∈ f.auths
  operator : s .operator = some caller

/-- The storage `initialize` leaves. -/
def initializedStorage (s : Storage) (admin operator : Address) : Storage :=
  ((((((((((((((s.set .admin admin).set .operator operator).set .paused false).set .stats
    SLAStats.zero).set .severityCalcCounts 0).set .severityViolCounts 0).set .lastCalculationTs
    0).set .lastViolationTs 0).set .histHead 0).set .histTail 0).set .historyLen 0).set .config
    defaultConfigs).set .configCount defaultConfigs.len).set .customConfig OrdMap.empty).set
    .storageVersion storageVersion

/-- The storage once a pending proposal is cleared. -/
def clearedPending (s : Storage) (role : Role) : Storage :=
  (s.remove (.pending role)).remove (.pendingTs role)

/-- The storage once a pending operator proposal, if there is one, is cleared. -/
def droppedPending (s : Storage) : Storage :=
  if (s (.pending .operator)).isSome then clearedPending s .operator else s

/-- The event of clearing a pending operator proposal. -/
def droppedEvents (s : Storage) (caller : Address) : List Event :=
  if (s (.pending .operator)).isSome then [.opCan caller] else []

/-- The storage once a proposal is pending. -/
def proposed (s : Storage) (role : Role) (candidate : Address) (now : Nat) : Storage :=
  (s.set (.pending role) candidate).set (.pendingTs role) now

/-- The proposal of `caller` for the role is pending and has not lapsed. -/
structure Accepts (f : Frame Address) (s : Storage) (role : Role) (caller : Address) : Prop where
  version : s .storageVersion = some storageVersion
  thawed : isConfigFrozen s = false
  signed : caller ∈ f.auths
  pending : s (.pending role) = some caller
  inTime : ∃ since, s (.pendingTs role) = some since ∧
    f.timestamp - since ≤ proposalExpiryWindow

/-- The storage once a configuration update is stamped and registered. -/
def registered (s : Storage) (sequence hash : Nat) (snapshot : SLAConfigSnapshot) : Storage :=
  (s.set .lastCfgUpdate sequence).set .configRegistry
    (((s .configRegistry).getD OrdMap.empty).set hash snapshot)

/-- The storage differs from `s` in the history keys only, which hold the log `L`. -/
structure HistoryChange (s s' : Storage) (L : ShardedLog SLAResult Symbol) : Prop where
  log : History.shards s' = L
  other : ∀ k, History.isHistoryKey k = false → s' k = s k

/-- The retained entries that are recent enough to survive an age prune. -/
def recent (f : Frame Address) (s : Storage) (min_age_seconds : Nat) : List SLAResult :=
  (History.readAllEntries s).filter (f.timestamp - min_age_seconds ≤ ·.recorded_at)

/-- The ways a call can succeed. -/
inductive Effect (f : Frame Address) (s : Storage) :
    Call → Reply → Storage → List Event → Prop
  | initialized {admin operator} (absent : s .admin = none) (signed : admin ∈ f.auths)
      (consented : operator ∈ f.auths) :
      Effect f s (.initializeContract admin operator) .unit
        (initializedStorage s admin operator) []
  | migrateCurrent {caller} (signed : caller ∈ f.auths) (admin : s .admin = some caller)
      (version : s .storageVersion = some storageVersion) :
      Effect f s (.migrate caller) .unit s []
  | operatorSet {caller new_operator} (by_admin : ByAdmin f s caller)
      (thawed : isConfigFrozen s = false) :
      Effect f s (.setOperator caller new_operator) .unit
        ((droppedPending s).set .operator new_operator)
        (droppedEvents s caller ++ [.opSet caller new_operator])
  | adminProposed {caller new_admin} (by_admin : ByAdmin f s caller)
      (thawed : isConfigFrozen s = false) (distinct : new_admin ≠ caller) :
      Effect f s (.proposeAdmin caller new_admin) .unit
        (proposed s .admin new_admin f.timestamp)
        ((s (.pending .admin)).toList.map (.adminSup caller · new_admin) ++
          [.adminProp caller new_admin])
  | adminAccepted {caller} (accepts : Accepts f s .admin caller) :
      Effect f s (.acceptAdmin caller) .unit (clearedPending (s.set .admin caller) .admin)
        [.adminAcc caller]
  | adminCancelled {caller} (by_admin : ByAdmin f s caller) (thawed : isConfigFrozen s = false)
      (pending : (s (.pending .admin)).isSome) :
      Effect f s (.cancelAdminProposal caller) .unit (clearedPending s .admin)
        [.adminCan caller]
  | operatorProposed {caller new_operator} (by_admin : ByAdmin f s caller)
      (thawed : isConfigFrozen s = false) :
      Effect f s (.proposeOperator caller new_operator) .unit
        (proposed s .operator new_operator f.timestamp)
        ((s (.pending .operator)).toList.map (.opSup caller · new_operator) ++
          [.opProp caller new_operator])
  | operatorAccepted {caller} (accepts : Accepts f s .operator caller) :
      Effect f s (.acceptOperator caller) .unit
        (clearedPending (s.set .operator caller) .operator) [.opAcc caller]
  | operatorCancelled {caller} (by_admin : ByAdmin f s caller)
      (thawed : isConfigFrozen s = false) (pending : (s (.pending .operator)).isSome) :
      Effect f s (.cancelOperatorProposal caller) .unit (clearedPending s .operator)
        [.opCan caller]
  | renounced {caller} (by_admin : ByAdmin f s caller) (thawed : isConfigFrozen s = false) :
      Effect f s (.renounceAdmin caller) .unit
        (droppedPending (clearedPending ((s.set .adminRenounced true).remove .admin) .admin))
        (droppedEvents s caller ++ [.adminRen caller])
  | paused {caller reason} (by_admin : ByAdmin f s caller)
      (short : reason.length ≤ maxReasonLen) :
      Effect f s (.pause caller reason) .unit
        ((s.set .paused true).set .pauseInfo ⟨reason, f.timestamp, caller⟩)
        [.paused caller true]
  | unpaused {caller} (by_admin : ByAdmin f s caller) :
      Effect f s (.unpause caller) .unit ((s.set .paused false).remove .pauseInfo)
        [.unpaused caller false]
  | frozen {caller} (by_admin : ByAdmin f s caller) (thawed : isConfigFrozen s = false) :
      Effect f s (.freezeConfig caller) .unit (s.set .freeze true) [.configFreeze caller]
  | stillFrozen {caller} (by_admin : ByAdmin f s caller) (frozen : isConfigFrozen s = true) :
      Effect f s (.freezeConfig caller) .unit s []
  | thawed {caller} (by_admin : ByAdmin f s caller) (frozen : isConfigFrozen s = true) :
      Effect f s (.unfreezeConfig caller) .unit (s.set .freeze false) [.configUnfreeze caller]
  | stillThawed {caller} (by_admin : ByAdmin f s caller) (thawed : isConfigFrozen s = false) :
      Effect f s (.unfreezeConfig caller) .unit s []
  | configSet {caller severity threshold penalty reward configs hash snapshot}
      (by_admin : ByAdmin f s caller) (thawed : isConfigFrozen s = false)
      (valid : validateConfig severity threshold penalty reward = .ok ())
      (penalties : validateCrossSeverityPenaltyOrdering severity penalty s = .ok ())
      (thresholds : validateCrossSeverityThresholdOrdering severity threshold s = .ok ())
      (stored : s .config = some configs) :
      Effect f s (.setConfig caller severity threshold penalty reward) .unit
        (registered ((s.set .config (configs.set severity ⟨threshold, penalty, reward⟩)).set
          .configCount (configs.set severity ⟨threshold, penalty, reward⟩).len)
          f.sequence hash snapshot)
        [.configUpd severity threshold penalty reward]
  | customSet {caller severity threshold penalty reward hash snapshot}
      (by_admin : ByAdmin f s caller) (thawed : isConfigFrozen s = false)
      (custom : isCanonicalSeverity severity = false)
      (valid : validateGeneralBounds threshold penalty reward = .ok ()) :
      Effect f s (.setCustomSeverity caller severity threshold penalty reward) .unit
        (registered
          (s.set .customConfig ((customConfigs s).set severity ⟨threshold, penalty, reward⟩))
          f.sequence hash snapshot)
        [if (customConfigs s).contains severity then .sevUpd severity threshold penalty reward
          else .sevAdd severity threshold penalty reward]
  | customRemoved {caller severity} (by_admin : ByAdmin f s caller)
      (thawed : isConfigFrozen s = false)
      (present : (customConfigs s).contains severity = true) :
      Effect f s (.removeCustomSeverity caller severity) .unit
        (s.set .customConfig ((customConfigs s).remove severity)) [.configRem severity]
  | replayed {caller outage_id severity mttr cfg result prev}
      (by_operator : ByOperator f s caller) (bound : mttr ≤ maxMttr)
      (config : loadConfig severity s = .ok cfg)
      (computed : computeResult outage_id mttr cfg (severityConfigHash cfg) f.timestamp =
        .ok result)
      (latest : History.latestForOutage s outage_id = some prev)
      (generation : prev.config_version_hash = severityConfigHash cfg)
      (inputs : prev.mttr_minutes = mttr ∧ prev.threshold_minutes = cfg.threshold_minutes) :
      Effect f s (.calculateSla caller outage_id severity mttr) (.decision prev) s []
  | recorded {caller outage_id severity mttr cfg result s'}
      (by_operator : ByOperator f s caller) (bound : mttr ≤ maxMttr)
      (config : loadConfig severity s = .ok cfg)
      (computed : computeResult outage_id mttr cfg (severityConfigHash cfg) f.timestamp =
        .ok result)
      (admits : Admits s outage_id (severityConfigHash cfg))
      (change : Recorded s result s') :
      Effect f s (.calculateSla caller outage_id severity mttr) (.decision result) s'
        (recordedEvents f s severity result)
  | pruned {caller keep_latest s'} (by_admin : ByAdmin f s caller)
      (change : HistoryChange s s'
        ((History.shards s).dropTo SLAResult.outage_id keep_latest))
      (historyLen : s' .historyLen =
        if keep_latest ≥ History.len s then s .historyLen else some keep_latest) :
      Effect f s (.pruneHistory caller keep_latest) .unit s'
        [.pruned caller (History.len s - keep_latest) keep_latest]
  | keptAll {caller min_age} (by_admin : ByAdmin f s caller) (inRange : min_age < f.timestamp)
      (all : recent f s min_age = History.readAllEntries s) :
      Effect f s (.pruneHistoryByAge caller min_age) .unit s
        [.prunedAge caller 0 (History.readAllEntries s).length]
  | prunedByAge {caller min_age s'} (by_admin : ByAdmin f s caller)
      (inRange : min_age < f.timestamp)
      (some_old : (recent f s min_age).length < (History.readAllEntries s).length)
      (fits : History.head s + (recent f s min_age).length < 2 ^ 32)
      (change : HistoryChange s s'
        ((History.shards s).rebuild SLAResult.outage_id (recent f s min_age)))
      (historyLen : s' .historyLen = some (recent f s min_age).length) :
      Effect f s (.pruneHistoryByAge caller min_age) .unit s'
        [.prunedAge caller ((History.readAllEntries s).length - (recent f s min_age).length)
          (recent f s min_age).length]
  | retentionSet {caller limit s'} (by_admin : ByAdmin f s caller)
      (thawed : isConfigFrozen s = false) (inRange : 0 < limit ∧ limit ≤ maxHistorySize)
      (change : HistoryChange (s.set .retentionLimit limit) s'
        ((History.shards s).dropTo SLAResult.outage_id limit))
      (historyLen : s' .historyLen =
        if limit ≥ History.len s then s .historyLen else some limit) :
      Effect f s (.setRetentionLimit caller limit) .unit s'
        (.retLim caller limit :: if History.len s - limit > 0 then
          [.pruned caller (History.len s - limit) limit] else [])

/-! ## Every successful call is an effect -/

@[simp] theorem withoutPendingOperator_storage (caller : Address) (env : ContractEnv) :
    (withoutPendingOperator caller env).storage = droppedPending env.storage := by
  by_cases h : (env.storage (.pending .operator)).isSome <;>
    simp [withoutPendingOperator, droppedPending, clearedPending, h]

@[simp] theorem withoutPendingOperator_events (caller : Address) (env : ContractEnv) :
    (withoutPendingOperator caller env).events =
      env.events ++ droppedEvents env.storage caller := by
  by_cases h : (env.storage (.pending .operator)).isSome <;>
    simp [withoutPendingOperator, droppedEvents, h]

/-- On every state a run reaches, an admin stands only on the current storage version. -/
def Current (s : Storage) : Prop :=
  ∀ admin, s .admin = some admin → s .storageVersion = some storageVersion

/-- The decision repeats the inputs it was computed from. -/
theorem computeResult_inputs {outage_id : Symbol} {mttr hash now : Nat} {cfg : SLAConfig}
    {result : SLAResult} (h : computeResult outage_id mttr cfg hash now = .ok result) :
    outage_id = result.outage_id ∧ result.mttr_minutes = mttr ∧
      result.threshold_minutes = cfg.threshold_minutes ∧ result.config_version_hash = hash ∧
      result.recorded_at = now := by
  unfold computeResult at h
  split at h
  · simp only [computePenalty, bind_eq_ok, pure_eq_ok] at h
    obtain ⟨_, -, _, -, _, -, rfl⟩ := h
    exact ⟨rfl, rfl, rfl, rfl, rfl⟩
  · simp only [computeReward, bind_eq_ok, pure_eq_ok] at h
    obtain ⟨_, -, _, -, rfl⟩ := h
    exact ⟨rfl, rfl, rfl, rfl, rfl⟩

/-- The cached length after a prune, in one equation. -/
theorem historyLen_of_prune {s s' : Storage} {keep : Nat}
    (h : s' .historyLen = s .historyLen ∧ keep ≥ History.len s ∨
      s' .historyLen = some keep ∧ keep < History.len s) :
    s' .historyLen = if keep ≥ History.len s then s .historyLen else some keep := by
  rcases h with ⟨h, hk⟩ | ⟨h, hk⟩
  · rw [h, if_pos hk]
  · rw [h, if_neg (Nat.not_le.mpr hk)]

section Inversion

variable {f : Frame Address} {s : Storage} {env' : ContractEnv} {u : Unit}

theorem initialize_effect {admin operator : Address}
    (h : (initializeContract admin operator).Returns f ⟨s, [], []⟩ u env') :
    Effect f s (.initializeContract admin operator) .unit env'.storage env'.events := by
  simp [initializeContract] at h
  obtain ⟨absent, signed, ⟨rfl, rfl⟩ | ⟨-, consented, rfl⟩⟩ := h
  · exact .initialized absent signed signed
  · exact .initialized absent signed consented

theorem migrate_effect {caller : Address} (hc : Current s)
    (h : (migrate caller).Returns f ⟨s, [], []⟩ u env') :
    Effect f s (.migrate caller) .unit env'.storage env'.events := by
  simp only [migrate, Contract.getOr, Contract.failIf, Contract.getD,
    Prog.returns_requireAuth_bind, Prog.returns_getOr_bind, Prog.returns_failIf_bind,
    Prog.returns_getD_bind, Decidable.not_not] at h
  obtain ⟨signed, admin, hadmin, rfl, h⟩ := h
  -- an admin stands, so the version is current and no arm runs
  have hv := hc caller hadmin
  simp only [hv, Option.getD_some, if_true, Prog.returns_pure] at h
  obtain ⟨-, rfl⟩ := h
  exact .migrateCurrent signed hadmin hv

theorem setOperator_effect {caller new_operator : Address}
    (h : (setOperator caller new_operator).Returns f ⟨s, [], []⟩ u env') :
    Effect f s (.setOperator caller new_operator) .unit env'.storage env'.events := by
  simp [setOperator] at h
  obtain ⟨version, thawed, signed, standing, admin, rfl⟩ := h
  simpa using Effect.operatorSet ⟨version, signed, standing, admin⟩ thawed

theorem proposeAdmin_effect {caller new_admin : Address}
    (h : (proposeAdmin caller new_admin).Returns f ⟨s, [], []⟩ u env') :
    Effect f s (.proposeAdmin caller new_admin) .unit env'.storage env'.events := by
  simp [proposeAdmin] at h
  obtain ⟨version, thawed, signed, standing, admin, _, _, _, distinct, h⟩ := h
  have heffect := Effect.adminProposed ⟨version, signed, standing, admin⟩ thawed distinct
  cases hp : s (.pending .admin) <;> simp [hp] at h heffect <;> subst h <;> exact heffect

theorem acceptAdmin_effect {caller : Address}
    (h : (acceptAdmin caller).Returns f ⟨s, [], []⟩ u env') :
    Effect f s (.acceptAdmin caller) .unit env'.storage env'.events := by
  simp [acceptAdmin] at h
  obtain ⟨version, thawed, signed, pending, since, hs, inTime, rfl⟩ := h
  exact .adminAccepted ⟨version, thawed, signed, pending, since, hs, by omega⟩

theorem cancelAdminProposal_effect {caller : Address}
    (h : (cancelAdminProposal caller).Returns f ⟨s, [], []⟩ u env') :
    Effect f s (.cancelAdminProposal caller) .unit env'.storage env'.events := by
  simp [cancelAdminProposal] at h
  obtain ⟨version, thawed, signed, standing, admin, pending, rfl⟩ := h
  exact .adminCancelled ⟨version, signed, standing, admin⟩ thawed
    (Option.isSome_iff_ne_none.mpr pending)

theorem proposeOperator_effect {caller new_operator : Address}
    (h : (proposeOperator caller new_operator).Returns f ⟨s, [], []⟩ u env') :
    Effect f s (.proposeOperator caller new_operator) .unit env'.storage env'.events := by
  simp [proposeOperator] at h
  obtain ⟨version, thawed, signed, standing, admin, h⟩ := h
  have heffect : Effect f s (.proposeOperator caller new_operator) _ _ _ :=
    .operatorProposed ⟨version, signed, standing, admin⟩ thawed
  cases hp : s (.pending .operator) <;> simp [hp] at h heffect <;> subst h <;> exact heffect

theorem acceptOperator_effect {caller : Address}
    (h : (acceptOperator caller).Returns f ⟨s, [], []⟩ u env') :
    Effect f s (.acceptOperator caller) .unit env'.storage env'.events := by
  simp [acceptOperator] at h
  obtain ⟨version, thawed, signed, pending, since, hs, inTime, rfl⟩ := h
  exact .operatorAccepted ⟨version, thawed, signed, pending, since, hs, by omega⟩

theorem cancelOperatorProposal_effect {caller : Address}
    (h : (cancelOperatorProposal caller).Returns f ⟨s, [], []⟩ u env') :
    Effect f s (.cancelOperatorProposal caller) .unit env'.storage env'.events := by
  simp [cancelOperatorProposal] at h
  obtain ⟨version, thawed, signed, standing, admin, pending, rfl⟩ := h
  exact .operatorCancelled ⟨version, signed, standing, admin⟩ thawed
    (Option.isSome_iff_ne_none.mpr pending)

theorem renounceAdmin_effect {caller : Address}
    (h : (renounceAdmin caller).Returns f ⟨s, [], []⟩ u env') :
    Effect f s (.renounceAdmin caller) .unit env'.storage env'.events := by
  simp [renounceAdmin] at h
  obtain ⟨version, thawed, signed, standing, admin, rfl⟩ := h
  have heffect := Effect.renounced (f := f) ⟨version, signed, standing, admin⟩ thawed
  simpa [droppedEvents, clearedPending] using heffect

theorem pause_effect {caller : Address} {reason : List UInt8}
    (h : (pause caller reason).Returns f ⟨s, [], []⟩ u env') :
    Effect f s (.pause caller reason) .unit env'.storage env'.events := by
  simp [pause] at h
  obtain ⟨version, signed, standing, admin, short, rfl⟩ := h
  exact .paused ⟨version, signed, standing, admin⟩ short

theorem unpause_effect {caller : Address}
    (h : (unpause caller).Returns f ⟨s, [], []⟩ u env') :
    Effect f s (.unpause caller) .unit env'.storage env'.events := by
  simp [unpause] at h
  obtain ⟨version, signed, standing, admin, rfl⟩ := h
  exact .unpaused ⟨version, signed, standing, admin⟩

theorem freezeConfig_effect {caller : Address}
    (h : (freezeConfig caller).Returns f ⟨s, [], []⟩ u env') :
    Effect f s (.freezeConfig caller) .unit env'.storage env'.events := by
  simp [freezeConfig, freezeFlag] at h
  obtain ⟨version, signed, standing, admin, ⟨hf, rfl⟩ | ⟨hf, rfl⟩⟩ := h
  · exact .stillFrozen ⟨version, signed, standing, admin⟩ hf
  · exact .frozen ⟨version, signed, standing, admin⟩ hf

theorem unfreezeConfig_effect {caller : Address}
    (h : (unfreezeConfig caller).Returns f ⟨s, [], []⟩ u env') :
    Effect f s (.unfreezeConfig caller) .unit env'.storage env'.events := by
  simp [unfreezeConfig, unfreezeFlag] at h
  obtain ⟨version, signed, standing, admin, ⟨hf, rfl⟩ | ⟨hf, rfl⟩⟩ := h
  · exact .thawed ⟨version, signed, standing, admin⟩ hf
  · exact .stillThawed ⟨version, signed, standing, admin⟩ hf

theorem setConfig_effect {caller : Address} {severity : Symbol} {threshold : Nat}
    {penalty reward : Int}
    (h : (setConfig caller severity threshold penalty reward).Returns f ⟨s, [], []⟩ u env') :
    Effect f s (.setConfig caller severity threshold penalty reward) .unit env'.storage
      env'.events := by
  simp [setConfig] at h
  obtain ⟨version, signed, standing, admin, thawed, ⟨_, valid⟩, ⟨_, penalties⟩,
    ⟨_, thresholds⟩, configs, stored, hash, -, snapshot, -, rfl⟩ := h
  exact .configSet ⟨version, signed, standing, admin⟩ thawed valid penalties thresholds stored

theorem setCustomSeverity_effect {caller : Address} {severity : Symbol} {threshold : Nat}
    {penalty reward : Int}
    (h : (setCustomSeverity caller severity threshold penalty reward).Returns f ⟨s, [], []⟩ u
      env') :
    Effect f s (.setCustomSeverity caller severity threshold penalty reward) .unit env'.storage
      env'.events := by
  simp [setCustomSeverity] at h
  obtain ⟨version, signed, standing, admin, thawed, custom, ⟨_, valid⟩, hash, -, snapshot, -,
    rfl⟩ := h
  exact .customSet ⟨version, signed, standing, admin⟩ thawed custom valid

theorem removeCustomSeverity_effect {caller : Address} {severity : Symbol}
    (h : (removeCustomSeverity caller severity).Returns f ⟨s, [], []⟩ u env') :
    Effect f s (.removeCustomSeverity caller severity) .unit env'.storage env'.events := by
  simp [removeCustomSeverity] at h
  obtain ⟨version, signed, standing, admin, thawed, present, rfl⟩ := h
  exact .customRemoved ⟨version, signed, standing, admin⟩ thawed present

theorem calculateSla_effect {caller : Address} {outage_id severity : Symbol} {mttr : Nat}
    {r : SLAResult}
    (h : (calculateSla caller outage_id severity mttr).Returns f ⟨s, [], []⟩ r env') :
    Effect f s (.calculateSla caller outage_id severity mttr) (.decision r) env'.storage
      env'.events := by
  simp only [calculateSla, Contract.reads, Contract.ask, Prog.returns_reads_bind,
    returns_requireOperator_bind, Prog.returns_timestamp_bind, Prog.returns_ask_bind,
    checkVersion_eq_ok, validateMttrBound_eq_ok, requireNotPaused_eq_ok] at h
  obtain ⟨_, version, _, bound, _, unpaused, signed, operator, cfg, config, hash, hhash, result,
    computed, h⟩ := h
  have by_operator : ByOperator f s caller := ⟨version, unpaused, signed, operator⟩
  obtain rfl : severityConfigHash cfg = hash := by
    simpa [computeSeverityConfigHash, config] using hhash
  have hlatest : (History.entryIndicesForOutage s outage_id).getLast?.bind (History.readEntry s) =
      History.latestForOutage s outage_id := rfl
  obtain ⟨rfl, -⟩ := computeResult_inputs computed
  rw [hlatest] at h
  cases hprev : History.latestForOutage s result.outage_id with
  | none =>
    simp only [hprev] at h
    obtain ⟨rfl, change, hevents⟩ := recordDecision_recorded h rfl
    rw [hevents]
    exact .recorded by_operator bound config computed (fun prev hp => by simp [hprev] at hp) change
  | some prev =>
    simp only [hprev, Prog.returns_ite, Prog.returns_pure, Prog.returns_fail, and_false,
      false_or] at h
    rcases h with ⟨generation, ⟨-, h⟩ | ⟨inputs, rfl, rfl⟩⟩ | ⟨generation, room, h⟩
    · simp at h
    · exact .replayed by_operator bound config computed hprev generation (by simpa using inputs)
    · obtain ⟨rfl, change, hevents⟩ := recordDecision_recorded h rfl
      rw [hevents]
      refine .recorded by_operator bound config computed ?_ change
      intro prev' hp
      obtain rfl : prev = prev' := by simpa [hprev] using hp
      exact ⟨generation, Nat.lt_of_not_le room⟩

theorem pruneHistory_effect {caller : Address} {keep_latest : Nat}
    (h : (pruneHistory caller keep_latest).Returns f ⟨s, [], []⟩ u env') :
    Effect f s (.pruneHistory caller keep_latest) .unit env'.storage env'.events := by
  simp [pruneHistory] at h
  obtain ⟨version, signed, standing, admin, h⟩ := h
  obtain ⟨removed, mid, hprune, h⟩ := (Prog.returns_bind ..).mp h
  obtain ⟨hleaves, rfl, hlen⟩ := History.pruneOldest_leaves hprune
  obtain rfl := (Prog.returns_publish ..).mp h
  have hevents : mid.events = [] := hleaves.events
  have heffect := Effect.pruned ⟨version, signed, standing, admin⟩ ⟨hleaves.log, hleaves.other⟩
    (historyLen_of_prune hlen)
  simpa [hevents] using heffect

theorem pruneHistoryByAge_effect {caller : Address} {min_age : Nat}
    (h : (pruneHistoryByAge caller min_age).Returns f ⟨s, [], []⟩ u env') :
    Effect f s (.pruneHistoryByAge caller min_age) .unit env'.storage env'.events := by
  simp only [pruneHistoryByAge, Contract.reads, Contract.failIf, Contract.ask,
    Prog.returns_reads_bind, checkVersion_eq_ok, returns_requireAdmin_bind,
    Prog.returns_timestamp_bind, Prog.returns_failIf_bind, Prog.returns_ask_bind,
    Prog.returns_ite, Contract.publish, Prog.returns_publish] at h
  obtain ⟨_, version, signed, standing, admin, inRange, h⟩ := h
  have by_admin : ByAdmin f s caller := ⟨version, signed, standing, admin⟩
  have hle : (recent f s min_age).length ≤ (History.readAllEntries s).length :=
    List.length_filter_le _ _
  rcases h with ⟨hremoved, h⟩ | ⟨hremoved, h⟩
  · obtain ⟨_, mid, hrebuild, h⟩ := (Prog.returns_bind ..).mp h
    have some_old : (recent f s min_age).length < (History.readAllEntries s).length :=
      Nat.lt_of_sub_pos hremoved
    have fits : History.head s + (recent f s min_age).length < 2 ^ 32 := by
      have := History.length_readAllEntries_le s
      omega
    obtain ⟨hleaves, hlen⟩ := History.rebuildHistory_leaves hrebuild fits
    obtain rfl := (Prog.returns_publish ..).mp h
    have hevents : mid.events = [] := hleaves.events
    have heffect := Effect.prunedByAge by_admin (by omega) some_old fits
      ⟨hleaves.log, hleaves.other⟩ hlen
    simpa [hevents, recent] using heffect
  · subst h
    have hlen : (History.readAllEntries s).length - (recent f s min_age).length = 0 :=
      Nat.eq_zero_of_not_pos hremoved
    have all : recent f s min_age = History.readAllEntries s :=
      (List.filter_sublist).eq_of_length_le (by omega)
    have heffect := Effect.keptAll by_admin (Nat.lt_of_not_le inRange) all
    have hfilter : (History.readAllEntries s).filter (f.timestamp - min_age ≤ ·.recorded_at) =
        History.readAllEntries s := all
    rw [hfilter]
    simpa using heffect

theorem setRetentionLimit_effect {caller : Address} {limit : Nat}
    (h : (setRetentionLimit caller limit).Returns f ⟨s, [], []⟩ u env') :
    Effect f s (.setRetentionLimit caller limit) .unit env'.storage env'.events := by
  simp [setRetentionLimit] at h
  obtain ⟨version, signed, standing, admin, thawed, inRange, h⟩ := h
  obtain ⟨removed, mid, hprune, h⟩ := (Prog.returns_bind ..).mp h
  obtain ⟨hleaves, rfl, hlen⟩ := History.pruneOldest_leaves hprune
  have hshards : History.shards (s.set .retentionLimit limit) = History.shards s :=
    History.shards_set_of_other rfl
  have hlens : History.len (s.set .retentionLimit limit) = History.len s :=
    congrArg ShardedLog.len hshards
  have hevents : mid.events = [.retLim caller limit] := hleaves.events
  simp only [Env.publish_storage, Env.set_storage, hlens] at h hlen
  have hlen' : mid.storage .historyLen =
      if limit ≥ History.len s then s .historyLen else some limit :=
    historyLen_of_prune (by simpa using hlen)
  have hlog : History.shards mid.storage =
      (History.shards s).dropTo SLAResult.outage_id limit := by
    rw [← hshards]
    exact hleaves.log
  have heffect := Effect.retentionSet ⟨version, signed, standing, admin⟩ thawed
    ⟨Nat.pos_of_ne_zero inRange.1, inRange.2⟩ ⟨hlog, hleaves.other⟩ hlen'
  by_cases hremoved : 0 < History.len s - limit
  · simp only [hremoved, if_true, Prog.returns_publish] at h
    subst h
    simpa [hevents, hremoved] using heffect
  · simp only [hremoved, if_false, Prog.returns_pure] at h
    obtain ⟨-, rfl⟩ := h
    simpa [hevents, hremoved] using heffect

/-- A call that replies nothing returns when its program does. -/
theorem returns_replyUnit {m : Contract Unit} {env : ContractEnv} {r : Reply} :
    (replyUnit m).Returns f env r env' ↔ r = .unit ∧ m.Returns f env () env' := by
  simp only [replyUnit, Prog.returns_bind, Prog.returns_pure]
  constructor
  · rintro ⟨_, _, hm, rfl, rfl⟩
    exact ⟨rfl, hm⟩
  · rintro ⟨rfl, hm⟩
    exact ⟨(), env', hm, rfl, rfl⟩

/-- The effect of a call that replies nothing is the effect of its program. -/
theorem effect_of_replyUnit {c : Call} {m : Contract Unit} {r : Reply}
    (h : (replyUnit m).Returns f ⟨s, [], []⟩ r env')
    (he : m.Returns f ⟨s, [], []⟩ () env' → Effect f s c .unit env'.storage env'.events) :
    Effect f s c r env'.storage env'.events := by
  obtain ⟨rfl, hm⟩ := returns_replyUnit.mp h
  exact he hm

/-- A call that succeeds on a current storage is one of the listed effects. -/
theorem returns_effect {c : Call} {r : Reply} (hc : Current s)
    (h : (exec c).Returns f ⟨s, [], []⟩ r env') : Effect f s c r env'.storage env'.events := by
  cases c with
  | calculateSla =>
    obtain ⟨result, mid, hm, hpure⟩ := (Prog.returns_bind ..).mp h
    obtain ⟨rfl, rfl⟩ := (Prog.returns_pure ..).mp hpure
    exact calculateSla_effect hm
  | initializeContract => exact effect_of_replyUnit h initialize_effect
  | migrate => exact effect_of_replyUnit h (migrate_effect hc)
  | setOperator => exact effect_of_replyUnit h setOperator_effect
  | proposeAdmin => exact effect_of_replyUnit h proposeAdmin_effect
  | acceptAdmin => exact effect_of_replyUnit h acceptAdmin_effect
  | cancelAdminProposal => exact effect_of_replyUnit h cancelAdminProposal_effect
  | proposeOperator => exact effect_of_replyUnit h proposeOperator_effect
  | acceptOperator => exact effect_of_replyUnit h acceptOperator_effect
  | cancelOperatorProposal => exact effect_of_replyUnit h cancelOperatorProposal_effect
  | renounceAdmin => exact effect_of_replyUnit h renounceAdmin_effect
  | pause => exact effect_of_replyUnit h pause_effect
  | unpause => exact effect_of_replyUnit h unpause_effect
  | freezeConfig => exact effect_of_replyUnit h freezeConfig_effect
  | unfreezeConfig => exact effect_of_replyUnit h unfreezeConfig_effect
  | setConfig => exact effect_of_replyUnit h setConfig_effect
  | setCustomSeverity => exact effect_of_replyUnit h setCustomSeverity_effect
  | removeCustomSeverity => exact effect_of_replyUnit h removeCustomSeverity_effect
  | pruneHistory => exact effect_of_replyUnit h pruneHistory_effect
  | pruneHistoryByAge => exact effect_of_replyUnit h pruneHistoryByAge_effect
  | setRetentionLimit => exact effect_of_replyUnit h setRetentionLimit_effect

end Inversion

/-! ## Calls that go through -/

section Returns

variable {f : Frame Address} {s : Storage}

theorem pruneHistory_returns {caller : Address} (by_admin : ByAdmin f s caller) (keep : Nat) :
    ∃ env', (pruneHistory caller keep).Returns f ⟨s, [], []⟩ () env' := by
  obtain ⟨version, signed, standing, admin⟩ := by_admin
  obtain ⟨removed, mid, hprune⟩ := History.pruneOldest_total keep f ⟨s, [], []⟩
  refine ⟨mid.publish (.pruned caller removed keep), ?_⟩
  simp [pruneHistory, version, signed, standing, admin]
  exact (Prog.returns_bind ..).mpr ⟨removed, mid, hprune, rfl⟩

theorem setRetentionLimit_returns {caller : Address} (by_admin : ByAdmin f s caller)
    (thawed : isConfigFrozen s = false) {limit : Nat}
    (inRange : 0 < limit ∧ limit ≤ maxHistorySize) :
    ∃ env', (setRetentionLimit caller limit).Returns f ⟨s, [], []⟩ () env' := by
  obtain ⟨version, signed, standing, admin⟩ := by_admin
  have hrest : Prog.Total (do
      let remove_count ← History.pruneOldest limit
      if remove_count > 0 then Contract.publish (.pruned caller remove_count limit)
      else pure ()) :=
    .bind (History.pruneOldest_total limit) fun _ => .ite _ (.publish _) (.pure _)
  obtain ⟨_, env', hreturns⟩ := hrest f
    ((Env.set ⟨s, [], []⟩ .retentionLimit limit).publish (.retLim caller limit))
  refine ⟨env', ?_⟩
  simp [setRetentionLimit, version, signed, standing, admin, thawed, inRange.2,
    Nat.pos_iff_ne_zero.mp inRange.1]
  exact hreturns

theorem initializeContract_returns {admin operator : Address} (absent : s .admin = none)
    (signed : admin ∈ f.auths) (consented : operator ∈ f.auths) :
    ∃ env', (initializeContract admin operator).Returns f ⟨s, [], []⟩ () env' := by
  by_cases hsame : admin = operator <;>
    simp [initializeContract, absent, signed, consented, hsame]

end Returns

end ApexChainx
